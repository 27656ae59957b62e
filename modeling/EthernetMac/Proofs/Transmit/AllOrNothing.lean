import EthernetMac.Proofs.Blocks
import EthernetMac.Proofs.Setting
import EthernetMac.Proofs.Transmit.BackPressure

namespace EthernetMac

variable {g : Geometry} {ε : Type}

/-- The slot waits for the hardware to send a frame of the given length from its block. -/
structure Slot.Offers (slot : Slot) (length : Nat) (options : TxOptions) (sequence : UInt16) : Prop where
  owned : slot.descriptor.isOwned = true
  block : slot.descriptor.word0 = slot.ext.buffer
  bufferLength : slot.descriptor.bufferLength = length
  frameLength : slot.descriptor.frameLength = length
  capture : slot.descriptor.wantsCapture = options.capturesTimestamp
  sequence : slot.ext.sequence = sequence
  asked : ∀ request, options = .captureTimestamp request → slot.ext.request = request
  unasked : options.capturesTimestamp = false → slot.ext.request = { tag := 0, callback := none }

theorem Transmitter.filledSlot_offers (slot : Slot) {length : Nat} (short : length ≤ maxDescriptorLength)
    (options : TxOptions) (sequence : UInt16) :
    (filledSlot slot length options sequence).Offers length options sequence where
  owned := Descriptor.isOwned_submission _ _ _
  block := rfl
  bufferLength := Descriptor.bufferLength_submission _ options short
  frameLength := Descriptor.frameLength_submission _ options short
  capture := Descriptor.wantsCapture_submission _ options short
  sequence := rfl
  asked := by
    rintro request rfl
    rfl
  unasked plain := by
    cases options with
    | none => rfl
    | interruptOnCompletion => rfl
    | captureTimestamp request => cases plain

namespace Board

/-- Why a frame of the given length cannot be taken at once. The first reason is the one that counts. -/
def refusal? (board : Board g ε) (length : Nat) : Option Failure :=
  if board.mac.lifecycle ≠ .running then some BusFault.invalidState
  else if length = 0 then some DmaFault.invalidLength
  else if g.buffer < length then some DmaFault.frameTooLarge
  else if board.mac.transmitter.ring.isOwned board.mac.transmitter.nextSlot then some DmaFault.descriptorBusy
  else none

/-- One frame went into the next slot and its block, the counts moved on by one, and the hardware was woken. Nothing
else happened. -/
structure Takes [Bus ε] (before : Board g ε) (bytes : Array UInt8) (options : TxOptions) (after : Board g ε) :
    Prop where
  submitted : after.mac.transmitter.submitted = before.mac.transmitter.submitted + 1
  nextSlot : after.mac.transmitter.nextSlot.val = (before.mac.transmitter.nextSlot.val + 1) % g.tx
  filled : (after.mac.transmitter.ring.slot before.mac.transmitter.nextSlot).Offers bytes.size options
    (before.mac.transmitter.submitted + 1)
  buffer : (after.mac.transmitter.ring.slot before.mac.transmitter.nextSlot).ext.buffer =
    (before.mac.transmitter.ring.slot before.mac.transmitter.nextSlot).ext.buffer
  copied : ∀ k, (after.mac.transmitter.pool.block before.mac.transmitter.nextSlot).byte k =
    (bytes[k.val]?).getD ((before.mac.transmitter.pool.block before.mac.transmitter.nextSlot).byte k)
  otherSlots : ∀ i ≠ before.mac.transmitter.nextSlot,
    after.mac.transmitter.ring.slot i = before.mac.transmitter.ring.slot i
  otherBlocks : ∀ i ≠ before.mac.transmitter.nextSlot,
    after.mac.transmitter.pool.block i = before.mac.transmitter.pool.block i
  ringBase : after.mac.transmitter.ring.base = before.mac.transmitter.ring.base
  poolBase : after.mac.transmitter.pool.base = before.mac.transmitter.pool.base
  nothingElse : after = { before with
    mac.transmitter.ring := after.mac.transmitter.ring
    mac.transmitter.pool := after.mac.transmitter.pool
    mac.transmitter.nextSlot := after.mac.transmitter.nextSlot
    mac.transmitter.submitted := after.mac.transmitter.submitted
    world := Bus.write Register.txTailPointer.offset 0 before.world }

/-- A frame is taken as a whole, or refused for a reason that can be told beforehand and without any effect. The call
that waits for its slot does not differ when it need not wait. -/
structure SubmitsWhole [Bus ε] (board : Board g ε) (bytes : Array UInt8) (options : TxOptions) : Prop where
  refused : ∀ failure, board.refusal? bytes.size = some failure →
    tryTransmit bytes options board = (.error failure, board)
  taken : board.refusal? bytes.size = none →
    ∃ after, tryTransmit bytes options board = (.ok (board.mac.transmitter.submitted + 1), after) ∧
      board.Takes bytes options after
  prompt : board.mac.transmitter.ring.isOwned board.mac.transmitter.nextSlot = false →
    ∀ idle spins, transmit bytes options idle spins board = some (tryTransmit bytes options board)

theorem fillSlot_takes [Bus ε] (board : Board g ε) {bytes : Array UInt8} (fits : bytes.size ≤ g.buffer)
    (options : TxOptions) :
    board.Takes bytes options (fillSlot board.mac.transmitter.nextSlot bytes options board).2 := by
  have short := fits.trans g.buffer_le
  have slot : (fillSlot board.mac.transmitter.nextSlot bytes options board).2.mac.transmitter.ring.slot
      board.mac.transmitter.nextSlot =
        Transmitter.filledSlot (board.mac.transmitter.ring.slot board.mac.transmitter.nextSlot) bytes.size options
          (board.mac.transmitter.submitted + 1) := Ring.slot_modifySlot_self _ _ _
  refine ⟨rfl, rfl, ?_, ?_, fun k => ?_, fun i other => Ring.slot_modifySlot_of_ne _ _ (Ne.symm other),
    fun i other => Pool.block_fill_of_ne _ _ (Ne.symm other), rfl, rfl, rfl⟩
  · rw [slot]
    exact Transmitter.filledSlot_offers _ short _ _
  · rw [slot]
    rfl
  · rw [fillSlot_mac, Transmitter.fill, Pool.block_fill_self, Block.byte_overlay, if_pos (Nat.zero_le _)]
    rfl

theorem refusal?_eq_none {board : Board g ε} {length : Nat} :
    board.refusal? length = none ↔ board.mac.lifecycle = .running ∧ (0 < length ∧ length ≤ g.buffer) ∧
      board.mac.transmitter.ring.isOwned board.mac.transmitter.nextSlot = false := by
  unfold refusal?
  constructor
  · intro none
    split at none
    · cases none
    · split at none
      · cases none
      · split at none
        · cases none
        · split at none
          · cases none
          · rename_i running positive fits free
            exact ⟨not_not.mp running, ⟨by omega, by omega⟩, Bool.eq_false_iff.mpr free⟩
  · rintro ⟨running, ⟨positive, fits⟩, free⟩
    rw [if_neg (not_not_intro running), if_neg (by omega), if_neg (by omega), if_neg (Bool.eq_false_iff.mp free)]

theorem tryTransmit_eq [Bus ε] (board : Board g ε) (bytes : Array UInt8) (options : TxOptions) :
    tryTransmit bytes options board =
      match board.refusal? bytes.size with
      | some failure => (.error failure, board)
      | none => (.ok (board.mac.transmitter.submitted + 1),
          (fillSlot board.mac.transmitter.nextSlot bytes options board).2) := by
  have limit := g.buffer_le
  rw [tryTransmit_apply]
  unfold refusal?
  by_cases running : board.mac.lifecycle = .running
  · rw [if_pos running, if_neg (not_not_intro running), Geometry.lengthFault?]
    by_cases empty : bytes.size = 0
    · rw [if_pos empty, if_pos empty]
    · rw [if_neg empty, if_neg empty]
      by_cases large : g.buffer < bytes.size
      · rw [if_pos large, if_pos (Or.inl large)]
      · rw [if_neg large, if_neg (show ¬ (g.buffer < bytes.size ∨ maxDescriptorLength < bytes.size) by omega)]
        dsimp only
        rw [Transmitter.isReady]
        cases board.mac.transmitter.ring.isOwned board.mac.transmitter.nextSlot with
        | true => rfl
        | false => rfl
  · rw [if_neg running, if_pos running]

theorem transmit_prompt [Bus ε] {board : Board g ε} (bytes : Array UInt8) (options : TxOptions)
    (free : board.mac.transmitter.ring.isOwned board.mac.transmitter.nextSlot = false)
    (idle : BoardM g ε Unit) (spins : Nat) :
    transmit bytes options idle spins board = some (tryTransmit bytes options board) := by
  rw [tryTransmit_apply]
  by_cases running : board.mac.lifecycle = .running
  · rw [if_pos running]
    cases valid : g.lengthFault? bytes.size with
    | some fault =>
      unfold transmit submitWaiting
      rw [Call.get_bind_apply, if_pos running, valid]
      rfl
    | none =>
      have ready : board.mac.transmitter.isReady = true := by rw [Transmitter.isReady, free]; rfl
      rw [transmit_apply options idle spins running valid, awaitSlot_free idle spins free]
      dsimp only
      rw [if_pos ready]
      rfl
  · unfold transmit
    rw [Call.get_bind_apply, if_neg running, if_neg running]
    rfl

theorem submits_whole [Bus ε] (board : Board g ε) (bytes : Array UInt8) (options : TxOptions) :
    board.SubmitsWhole bytes options := by
  have tried := tryTransmit_eq board bytes options
  refine ⟨fun failure refused => ?_, fun accepted => ?_, transmit_prompt bytes options⟩
  · rwa [refused] at tried
  · rw [accepted] at tried
    obtain ⟨_, ⟨_, fits⟩, _⟩ := refusal?_eq_none.mp accepted
    exact ⟨_, tried, fillSlot_takes board fits options⟩

/-- With one slot a second frame finds the first one there. -/
theorem submits_whole_twice : ∃ before after : Board .smallest RestingPeripheral,
    tryTransmit #[1, 2, 3] (.captureTimestamp ⟨7, some 2⟩) before = (.ok 1, after) ∧
      before.Takes #[1, 2, 3] (.captureTimestamp ⟨7, some 2⟩) after ∧
      tryTransmit #[4] .none after = (.error DmaFault.descriptorBusy, after) := by
  have first := submits_whole ((untried ⟨0x1000, 0x2000, 0x3000⟩ ⟨⟩ : Board .smallest RestingPeripheral).started {})
    #[1, 2, 3] (.captureTimestamp ⟨7, some 2⟩)
  obtain ⟨after, sent, taken⟩ := first.taken (by decide)
  obtain rfl : (tryTransmit _ _ _).2 = after := congrArg Prod.snd sent
  exact ⟨_, _, sent, taken, (submits_whole _ #[4] .none).refused _ (by decide)⟩

end Board

end EthernetMac

import EthernetMac.Proofs.RingArc
import EthernetMac.Receiver
import EthernetMac.Transmitter

namespace EthernetMac

namespace Geometry

/-- The number of a slot's block among those of both rings. -/
def blockNumber (g : Geometry) : Fin g.rx ⊕ Fin g.tx → Nat
  | .inl i => i.val
  | .inr i => g.rx + i.val

theorem blockNumber_lt (g : Geometry) (x : Fin g.rx ⊕ Fin g.tx) : g.blockNumber x < g.rx + g.tx := by
  cases x with
  | inl i => exact Nat.lt_of_lt_of_le i.isLt (Nat.le_add_right _ _)
  | inr i => exact Nat.add_lt_add_left i.isLt _

theorem blockNumber_injective (g : Geometry) {x y : Fin g.rx ⊕ Fin g.tx}
    (same : g.blockNumber x = g.blockNumber y) : x = y := by
  cases x with
  | inl i =>
    cases y with
    | inl j => exact congrArg Sum.inl (Fin.ext same)
    | inr j => exact absurd i.isLt (by rw [show i.val = g.rx + j.val from same]; omega)
  | inr i =>
    cases y with
    | inl j => exact absurd j.isLt (by rw [show j.val = g.rx + i.val from same.symm]; omega)
    | inr j => exact congrArg Sum.inr (Fin.ext (Nat.add_left_cancel same))

theorem blocks_bound (g : Geometry) : (g.rx + g.tx) * g.buffer < UInt32.size := by
  have slots : g.rx + g.tx ≤ 2048 := Nat.add_le_add g.rx_le g.tx_le
  exact Nat.lt_of_le_of_lt (Nat.mul_le_mul slots g.buffer_le) (by decide)

theorem blockNumber_reach (g : Geometry) (x : Fin g.rx ⊕ Fin g.tx) {k : Nat} (inside : k < g.buffer) :
    g.blockNumber x * g.buffer + k < UInt32.size := by
  have upper := Nat.mul_le_mul_right g.buffer (Nat.succ_le_of_lt (g.blockNumber_lt x))
  rw [Nat.succ_mul] at upper
  have bound := g.blocks_bound
  omega

end Geometry

namespace Placement

variable {g : Geometry}

/-- Where the block of a slot begins. -/
def block (placement : Placement) (g : Geometry) : Fin g.rx ⊕ Fin g.tx → UInt32
  | .inl i => placement.blocks + UInt32.ofNat (i.val * g.buffer)
  | .inr i => placement.txBlocks g + UInt32.ofNat (i.val * g.buffer)

theorem block_eq (placement : Placement) (x : Fin g.rx ⊕ Fin g.tx) :
    placement.block g x = placement.blocks + UInt32.ofNat (g.blockNumber x * g.buffer) := by
  cases x with
  | inl i => rfl
  | inr i => rw [block, txBlocks, Geometry.blockNumber, Nat.add_mul, UInt32.ofNat_add, UInt32.add_assoc]

/-- No byte lies in two blocks, even if the blocks lie across the top of the address space. -/
theorem blocks_apart (placement : Placement) {x y : Fin g.rx ⊕ Fin g.tx} {k l : Nat} (hk : k < g.buffer)
    (hl : l < g.buffer)
    (same : placement.block g x + UInt32.ofNat k = placement.block g y + UInt32.ofNat l) : x = y := by
  rw [block_eq, block_eq, UInt32.add_assoc, UInt32.add_assoc, ← UInt32.ofNat_add, ← UInt32.ofNat_add] at same
  have places := congrArg UInt32.toNat ((UInt32.add_right_inj placement.blocks).mp same)
  rw [UInt32.toNat_ofNat_of_lt' (g.blockNumber_reach x hk),
    UInt32.toNat_ofNat_of_lt' (g.blockNumber_reach y hl)] at places
  have numbers := congrArg (· / g.buffer) places
  rw [Nat.mul_comm (g.blockNumber x), Nat.mul_comm (g.blockNumber y), Nat.mul_add_div g.buffer_pos,
    Nat.mul_add_div g.buffer_pos, Nat.div_eq_of_lt hk, Nat.div_eq_of_lt hl] at numbers
  exact g.blockNumber_injective numbers

theorem block_aligned (placement : Placement) (aligned : placement.blocks.toNat % 4 = 0)
    (x : Fin g.rx ⊕ Fin g.tx) : (placement.block g x).toNat % 4 = 0 := by
  have multiple : g.blockNumber x * g.buffer % 4 = 0 := by rw [Nat.mul_mod, g.buffer_aligned, Nat.mul_zero]
  rw [block_eq, UInt32.toNat_add, UInt32.toNat_ofNat']
  omega

end Placement

namespace Descriptor

theorem isOwned_blank : blank.isOwned = false := by decide

theorem ofNat_and_lengthField {length : Nat} (short : length ≤ maxDescriptorLength) :
    UInt32.ofNat length &&& lengthField = UInt32.ofNat length := by
  have small : length < 2 ^ 14 := Nat.lt_succ_of_le short
  apply UInt32.toNat.inj
  rw [UInt32.toNat_and, UInt32.toNat_ofNat_of_lt' (Nat.lt_trans small (by decide))]
  exact (Nat.and_two_pow_sub_one_eq_mod length 14).trans (Nat.mod_eq_of_lt small)

theorem ofNat_and_frameLengthField {length : Nat} (short : length ≤ maxDescriptorLength) :
    UInt32.ofNat length &&& frameLengthField = UInt32.ofNat length := by
  have small : length < 2 ^ 15 := Nat.lt_of_le_of_lt short (by decide)
  apply UInt32.toNat.inj
  rw [UInt32.toNat_and, UInt32.toNat_ofNat_of_lt' (Nat.lt_trans small (by decide))]
  exact (Nat.and_two_pow_sub_one_eq_mod length 15).trans (Nat.mod_eq_of_lt small)

theorem or_and (a b mask : UInt32) : (a ||| b) &&& mask = a &&& mask ||| b &&& mask := by
  apply UInt32.toBitVec_inj.mp
  simp only [UInt32.toBitVec_and, UInt32.toBitVec_or]
  exact BitVec.and_or_distrib_right

/-- Bits of a word outside of the length field can be read without regard to the length. -/
theorem or_ofNat_and_outside {length : Nat} (short : length ≤ maxDescriptorLength) (word : UInt32) {mask : UInt32}
    (outside : lengthField &&& mask = 0) : (word ||| UInt32.ofNat length) &&& mask = word &&& mask := by
  rw [or_and, ← ofNat_and_lengthField short, UInt32.and_assoc, outside, UInt32.and_zero, UInt32.or_zero]

/-- The length can be read back out of any field that is clear otherwise. -/
theorem or_ofNat_and_field {length : Nat} (short : length ≤ maxDescriptorLength) {word mask : UInt32}
    (clear : word &&& mask = 0) (whole : lengthField &&& mask = lengthField) :
    ((word ||| UInt32.ofNat length) &&& mask).toNat = length := by
  rw [or_and, clear, UInt32.zero_or, ← ofNat_and_lengthField short, UInt32.and_assoc, whole,
    ofNat_and_lengthField short, UInt32.toNat_ofNat_of_lt' (Nat.lt_of_le_of_lt short (by decide))]

/-- A length that is short enough does not reach into the control bits beside it. -/
theorem submission_words (buffer : UInt32) {length : Nat} (control : UInt32) (short : length ≤ maxDescriptorLength) :
    (submission buffer length control).words =
      [buffer, 0, control ||| UInt32.ofNat length, 0xB0030000 ||| UInt32.ofNat length] := by
  rw [words, submission, ofNat_and_lengthField short, ofNat_and_frameLengthField short, submitWord]

def frameLength (d : Descriptor) : Nat := (d.word3 &&& frameLengthField).toNat

section Submission

variable (buffer : UInt32) {length : Nat} (options : TxOptions) (short : length ≤ maxDescriptorLength)

include short

theorem bufferLength_submission : (submission buffer length options.control).bufferLength = length := by
  rw [bufferLength, submission, ofNat_and_lengthField short]
  refine or_ofNat_and_field short ?_ (by decide)
  cases options with
  | none => decide
  | interruptOnCompletion => decide
  | captureTimestamp request =>
    change (interruptBit ||| captureBit) &&& lengthField = 0
    decide

theorem frameLength_submission : (submission buffer length options.control).frameLength = length := by
  rw [frameLength, submission, ofNat_and_frameLengthField short]
  exact or_ofNat_and_field short (by decide) (by decide)

theorem wantsInterrupt_submission :
    (submission buffer length options.control).wantsInterrupt = (options != .none) := by
  rw [wantsInterrupt, submission, ofNat_and_lengthField short]
  dsimp only
  rw [or_ofNat_and_outside short _ (by decide)]
  cases options with
  | none => decide
  | interruptOnCompletion => decide
  | captureTimestamp request =>
    change ((interruptBit ||| captureBit) &&& interruptBit != 0) = true
    decide

theorem wantsCapture_submission :
    (submission buffer length options.control).wantsCapture = options.capturesTimestamp := by
  rw [wantsCapture, submission, ofNat_and_lengthField short]
  dsimp only
  rw [or_ofNat_and_outside short _ (by decide)]
  cases options with
  | none => decide
  | interruptOnCompletion => decide
  | captureTimestamp request =>
    change ((interruptBit ||| captureBit) &&& captureBit != 0) = true
    decide

end Submission

end Descriptor

namespace Transmitter

variable {g : Geometry}

theorem descriptor_blank (g : Geometry) (placement : Placement) (i : Fin g.tx) :
    (blank g placement).ring.descriptor i = .blank := by
  simp [blank, Ring.blank, Ring.descriptor, Ring.slot, Descriptor.blank]

theorem slot_clear (t : Transmitter g) (i : Fin g.tx) :
    t.clear.ring.slot i = { ext := { buffer := t.pool.address i } } := by
  simp [clear, Ring.slot]

theorem descriptor_clear (t : Transmitter g) (i : Fin g.tx) : t.clear.ring.descriptor i = .blank :=
  congrArg Slot.descriptor (t.slot_clear i)

theorem buffer_clear (t : Transmitter g) (i : Fin g.tx) :
    (t.clear.ring.slot i).ext.buffer = t.pool.address i :=
  congrArg (fun slot => slot.ext.buffer) (t.slot_clear i)

end Transmitter

namespace Receiver

variable {g : Geometry}

theorem slot_arm (r : Receiver g) (i : Fin g.rx) :
    r.arm.ring.slot i = ⟨.armed (r.pool.address i), { buffer := r.pool.address i }⟩ := by
  simp [arm, Ring.slot]

end Receiver

theorem Geometry.lengthFault?_eq_none {g : Geometry} {length : Nat} :
    g.lengthFault? length = none ↔ 0 < length ∧ length ≤ g.buffer := by
  have limit := g.buffer_le
  unfold lengthFault?
  constructor
  · intro none
    split at none
    · cases none
    · split at none
      · cases none
      · omega
  · rintro ⟨positive, fits⟩
    rw [if_neg (by omega), if_neg (by omega)]

end EthernetMac

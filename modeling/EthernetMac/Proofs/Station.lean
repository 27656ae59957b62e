import EthernetMac.Peripheral

namespace EthernetMac.Peripheral

/-- A byte of a word is told by its bits. -/
theorem toUInt8_shiftRight_eq {word : UInt32} {byte : UInt8} (shift : UInt32)
    (bits : ∀ k < 8, word.toBitVec.getLsbD (shift.toNat % 32 + k) = byte.toBitVec.getLsbD k) :
    (word >>> shift).toUInt8 = byte := by
  apply UInt8.toBitVec_inj.mp
  apply BitVec.eq_of_getLsbD_eq
  intro k inside
  rw [UInt32.toBitVec_toUInt8, BitVec.getLsbD_setWidth, UInt32.toBitVec_shiftRight, BitVec.ushiftRight_eq',
    BitVec.getLsbD_ushiftRight, decide_eq_true inside, Bool.true_and, BitVec.toNat_umod]
  exact bits k inside

theorem bytes_of_word (a b c d : UInt8) {word : UInt32}
    (put : word = a.toUInt32 ||| b.toUInt32 <<< 8 ||| c.toUInt32 <<< 16 ||| d.toUInt32 <<< 24) :
    word.toUInt8 = a ∧ (word >>> 8).toUInt8 = b ∧ (word >>> 16).toUInt8 = c ∧ (word >>> 24).toUInt8 = d := by
  have bits (k : Nat) : word.toBitVec.getLsbD k =
      if k < 8 then a.toBitVec.getLsbD k
      else if k < 16 then b.toBitVec.getLsbD (k - 8)
      else if k < 24 then c.toBitVec.getLsbD (k - 16)
      else if k < 32 then d.toBitVec.getLsbD (k - 24)
      else false := by
    simp only [put, UInt32.toBitVec_or, UInt32.toBitVec_shiftLeft, UInt8.toBitVec_toUInt32, BitVec.getLsbD_or]
    simp
    grind
  clear put
  have lowest : word >>> 0 = word := UInt32.shiftRight_zero
  refine ⟨?_, ?_, ?_, ?_⟩
  · rw [← lowest]
    exact toUInt8_shiftRight_eq 0 fun k inside => (bits _).trans (by grind)
  · exact toUInt8_shiftRight_eq 8 fun k inside => (bits _).trans (by grind)
  · exact toUInt8_shiftRight_eq 16 fun k inside => (bits _).trans (by grind)
  · exact toUInt8_shiftRight_eq 24 fun k inside => (bits _).trans (by grind)

/-- The two words of the station address lose nothing of it. -/
theorem stationBytes_station (address : MacAddress) :
    stationBytes (stationHigh address) (stationLow address) = address := by
  have packed : stationLow address = (address.byte 0).toUInt32 ||| (address.byte 1).toUInt32 <<< 8
      ||| (address.byte 2).toUInt32 <<< 16 ||| (address.byte 3).toUInt32 <<< 24 := rfl
  have padded : stationHigh address = (address.byte 4).toUInt32 ||| (address.byte 5).toUInt32 <<< 8
      ||| (0 : UInt8).toUInt32 <<< 16 ||| (0 : UInt8).toUInt32 <<< 24 := by
    rw [stationHigh]
    simp
  have first := bytes_of_word _ _ _ _ packed
  have last := bytes_of_word _ _ _ _ padded
  generalize stationLow address = low at first ⊢
  generalize stationHigh address = high at last ⊢
  obtain ⟨zero, one, two, three⟩ := first
  obtain ⟨four, five, _⟩ := last
  simp only [stationBytes, zero, one, two, three, four, five]
  apply Vector.ext
  intro i inside
  match i, inside with
  | 0, _ | 1, _ | 2, _ | 3, _ | 4, _ | 5, _ => simp [MacAddress.byte]

end EthernetMac.Peripheral

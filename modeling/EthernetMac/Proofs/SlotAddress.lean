import EthernetMac.Ring

namespace EthernetMac.Ring

variable {n : Nat}

/-- How far behind slot 0 an address lies. The distance is counted on across the top of the address space, so it is
large for an address in front of the ring. -/
def offset (ring : Ring n) (address : UInt32) : Nat := (address - ring.base).toNat

theorem base_add_offset (ring : Ring n) (address : UInt32) :
    ring.base + UInt32.ofNat (ring.offset address) = address := by
  rw [offset, UInt32.ofNat_toNat, UInt32.add_comm, UInt32.sub_add_cancel]

theorem offset_base_add (ring : Ring n) {distance : Nat} (bound : distance < UInt32.size) :
    ring.offset (ring.base + UInt32.ofNat distance) = distance := by
  rw [offset, UInt32.add_comm, UInt32.add_sub_cancel, UInt32.toNat_ofNat_of_lt' bound]

/-- Going back from slot 0 leads to the same address as going on round the rest of the address space. -/
theorem offset_base_sub (ring : Ring n) {gap : Nat} (positive : 0 < gap) (bound : gap ≤ UInt32.size) :
    ring.offset (ring.base - UInt32.ofNat gap) = UInt32.size - gap := by
  have round : ring.base - UInt32.ofNat gap = ring.base + UInt32.ofNat (UInt32.size - gap) := by
    have whole : UInt32.ofNat UInt32.size = 0 := rfl
    rw [UInt32.ofNat_sub bound, whole, UInt32.zero_sub, UInt32.sub_eq_add_neg]
  rw [round, offset_base_add _ (by omega)]

/-- The search goes by the distance from slot 0 alone, and so it would in a ring longer than the address space. -/
theorem indexOf?_eq_some_iff_offset (ring : Ring n) (address : UInt32) (i : Fin n) :
    ring.indexOf? address = some i ↔ ring.offset address = i.val * Slot.size := by
  constructor
  · intro found
    unfold indexOf? at found
    dsimp only at found
    split at found
    · rename_i whole
      split at found
      · obtain rfl := Option.some.inj found
        exact (Nat.div_mul_cancel (Nat.dvd_of_mod_eq_zero whole)).symm
      · cases found
    · cases found
  · intro (distance : (address - ring.base).toNat = i.val * Slot.size)
    have quotient : i.val * Slot.size / Slot.size = i.val := Nat.mul_div_cancel _ (by decide)
    simp only [indexOf?, distance, Nat.mul_mod_left, quotient, i.isLt, if_true, dite_true]

/-- No slot of the ring begins at the address: it lies below the ring or past its end, which is one gap seen from its
two sides as addresses wrap, or it is that of a later byte of a slot. -/
inductive IsForeign (ring : Ring n) : UInt32 → Prop
  | below {gap} : 0 < gap → n * Slot.size + gap ≤ UInt32.size → ring.IsForeign (ring.base - UInt32.ofNat gap)
  | beyond {distance} : n * Slot.size ≤ distance → distance < UInt32.size →
      ring.IsForeign (ring.base + UInt32.ofNat distance)
  | inside (i) {byte} : 0 < byte → byte < Slot.size → ring.IsForeign (ring.slotAddress i + UInt32.ofNat byte)

section Small

variable (ring : Ring n) (small : n ≤ 1024)

include small

/-- A ring does not reach round the address space to its own start. -/
theorem slot_reach {i : Fin n} {byte : Nat} (within : byte ≤ Slot.size) :
    i.val * Slot.size + byte ≤ n * Slot.size ∧ n * Slot.size < UInt32.size := by
  have inside := i.isLt
  simp only [Slot.size, UInt32.size] at within ⊢
  omega

theorem offset_slotAddress_add (i : Fin n) {byte : Nat} (within : byte ≤ Slot.size) :
    ring.offset (ring.slotAddress i + UInt32.ofNat byte) = i.val * Slot.size + byte := by
  have reach := slot_reach small (i := i) within
  rw [slotAddress, UInt32.add_assoc, ← UInt32.ofNat_add, offset_base_add _ (by omega)]

theorem offset_slotAddress (i : Fin n) : ring.offset (ring.slotAddress i) = i.val * Slot.size := by
  have reach := slot_reach small (i := i) (Nat.zero_le Slot.size)
  exact ring.offset_base_add (by omega)

theorem indexOf?_eq_some_iff (address : UInt32) (i : Fin n) :
    ring.indexOf? address = some i ↔ address = ring.slotAddress i := by
  rw [indexOf?_eq_some_iff_offset]
  constructor
  · intro distance
    rw [← ring.base_add_offset address, distance, slotAddress]
  · rintro rfl
    exact ring.offset_slotAddress small i

theorem indexOf?_slotAddress (i : Fin n) : ring.indexOf? (ring.slotAddress i) = some i :=
  (ring.indexOf?_eq_some_iff small _ i).mpr rfl

theorem indexOf?_eq_none_iff (address : UInt32) :
    ring.indexOf? address = none ↔ ∀ i, address ≠ ring.slotAddress i := by
  simp only [Option.eq_none_iff_forall_ne_some, ne_eq, ring.indexOf?_eq_some_iff small]

/-- Every address is either that of a slot or foreign: one that is neither below the ring nor past its end lies in some
slot, and if not at the start, then within. -/
theorem isForeign_iff (address : UInt32) : ring.IsForeign address ↔ ∀ i, address ≠ ring.slotAddress i := by
  constructor
  · intro foreign j same
    have place := congrArg ring.offset same
    have reach := slot_reach small (i := j) (Nat.le_refl Slot.size)
    have positive : 0 < Slot.size := by decide
    rw [ring.offset_slotAddress small j] at place
    cases foreign with
    | below away fits =>
      rw [ring.offset_base_sub away (by omega)] at place
      omega
    | beyond far bound =>
      rw [ring.offset_base_add bound] at place
      omega
    | inside i later within =>
      -- no multiple of a slot's size lies strictly between two that follow on each other
      rw [ring.offset_slotAddress_add small i (Nat.le_of_lt within)] at place
      simp only [Slot.size] at within place
      omega
  · intro elsewhere
    have parts := Nat.div_add_mod' (ring.offset address) Slot.size
    by_cases inside : ring.offset address / Slot.size < n
    · have place : address = ring.slotAddress ⟨_, inside⟩ + UInt32.ofNat (ring.offset address % Slot.size) := by
        rw [slotAddress, UInt32.add_assoc, ← UInt32.ofNat_add, parts, base_add_offset]
      have later : 0 < ring.offset address % Slot.size := by
        refine Nat.pos_of_ne_zero fun first => elsewhere ⟨_, inside⟩ ?_
        rw [first] at place
        exact place.trans (UInt32.add_zero _)
      rw [place]
      exact .inside _ later (Nat.mod_lt _ (by decide))
    · have far : n * Slot.size ≤ ring.offset address :=
        (Nat.le_div_iff_mul_le (by decide)).mp (Nat.le_of_not_lt inside)
      rw [← ring.base_add_offset address]
      exact .beyond far (UInt32.toNat_lt_size _)

end Small

/-- To find the slot at an address and to tell the address of a slot are inverse to each other, wherever the ring lies,
and also if it lies across the top of the address space. Nothing is found at any other address, which is to say below
the ring, past its end and within a slot. -/
theorem slot_addresses_exact (ring : Ring n) (small : n ≤ 1024) (address : UInt32) :
    (∀ i : Nat, (ring.indexOf? address).map Fin.val = some i ↔
      ∃ inside : i < n, address = ring.slotAddress ⟨i, inside⟩) ∧
    (ring.indexOf? address = none ↔ ∀ i, address ≠ ring.slotAddress i) ∧
    (ring.indexOf? address = none ↔ ring.IsForeign address) := by
  have missed := ring.indexOf?_eq_none_iff small address
  refine ⟨fun i => ?_, missed, missed.trans (ring.isForeign_iff small address).symm⟩
  constructor
  · intro found
    obtain ⟨place, there, rfl⟩ := Option.map_eq_some_iff.mp found
    exact ⟨place.isLt, (ring.indexOf?_eq_some_iff small address place).mp there⟩
  · rintro ⟨inside, rfl⟩
    rw [ring.indexOf?_slotAddress small, Option.map_some]

/-- Three slots, the first of which ends at the top of the address space. -/
theorem slot_addresses_exact_straddling :
    let ring := Ring.blank 3 0xFFFFFFD8
    3 ≤ 1024 ∧ (ring.indexOf? 0).map Fin.val = some 1 ∧ (ring.indexOf? 40).map Fin.val = some 2 ∧
      ring.indexOf? (ring.base - UInt32.ofNat 40) = none ∧ ring.indexOf? (ring.base + UInt32.ofNat 120) = none ∧
      ring.indexOf? (ring.slotAddress 2 + UInt32.ofNat 4) = none := by
  intro ring
  have small : 3 ≤ 1024 := by decide
  have told := ring.slot_addresses_exact small
  exact ⟨small, ((told 0).1 1).mpr ⟨by decide, by decide⟩, ((told 40).1 2).mpr ⟨by decide, by decide⟩,
    (told _).2.2.mpr (.below (by decide) (by decide)), (told _).2.2.mpr (.beyond (by decide) (by decide)),
    (told _).2.2.mpr (.inside 2 (by decide) (by decide))⟩

end EthernetMac.Ring

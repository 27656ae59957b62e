import EthernetMac.Slot

namespace EthernetMac

/-- A circle of `n` slots that the software shares with one DMA channel, `base` being the address of slot 0. -/
structure Ring (n : Nat) where
  base : UInt32
  slots : Vector Slot n

namespace Ring

variable {n : Nat}

def blank (n : Nat) (base : UInt32) : Ring n :=
  ⟨base, Vector.replicate n {}⟩

def advance (i : Fin n) (count : Nat) : Fin n :=
  ⟨(i.val + count) % n, Nat.mod_lt _ i.pos⟩

def next (i : Fin n) : Fin n := advance i 1

def previous (i : Fin n) : Fin n := advance i (n - 1)

def slot (ring : Ring n) (i : Fin n) : Slot := getElem ring.slots i.val i.isLt

def descriptor (ring : Ring n) (i : Fin n) : Descriptor := (ring.slot i).descriptor

def isOwned (ring : Ring n) (i : Fin n) : Bool := (ring.descriptor i).isOwned

def setSlot (ring : Ring n) (i : Fin n) (slot : Slot) : Ring n :=
  { ring with slots := ring.slots.set i.val slot i.isLt }

def modifySlot (ring : Ring n) (i : Fin n) (change : Slot → Slot) : Ring n :=
  ring.setSlot i (change (ring.slot i))

def setDescriptor (ring : Ring n) (i : Fin n) (descriptor : Descriptor) : Ring n :=
  ring.modifySlot i fun slot => { slot with descriptor := descriptor }

@[simp]
theorem slot_setSlot_self (ring : Ring n) (i : Fin n) (slot : Slot) : (ring.setSlot i slot).slot i = slot := by
  simp [setSlot, Ring.slot]

theorem slot_setSlot_of_ne (ring : Ring n) {i j : Fin n} (slot : Slot) (apart : i ≠ j) :
    (ring.setSlot i slot).slot j = ring.slot j := by
  have places : i.val ≠ j.val := fun same => apart (Fin.ext same)
  simp [setSlot, Ring.slot, places]

@[simp]
theorem base_setSlot (ring : Ring n) (i : Fin n) (slot : Slot) : (ring.setSlot i slot).base = ring.base := rfl

theorem advance_advance (i : Fin n) (a b : Nat) : advance (advance i a) b = advance i (a + b) := by
  apply Fin.ext
  simp [advance, Nat.add_assoc]

@[simp]
theorem next_previous (i : Fin n) : next (previous i) = i := by
  have inside := i.isLt
  rw [next, previous, advance_advance]
  apply Fin.ext
  simp only [advance]
  rw [show i.val + (n - 1 + 1) = i.val + n by omega, Nat.add_mod_right, Nat.mod_eq_of_lt inside]

@[simp]
theorem previous_next (i : Fin n) : previous (next i) = i := by
  have inside := i.isLt
  rw [next, previous, advance_advance]
  apply Fin.ext
  simp only [advance]
  rw [show i.val + (1 + (n - 1)) = i.val + n by omega, Nat.add_mod_right, Nat.mod_eq_of_lt inside]

def slotAddress (ring : Ring n) (i : Fin n) : UInt32 :=
  ring.base + UInt32.ofNat (i.val * Slot.size)

/-- The slot at an address, if the address is that of a slot of the ring. Distances wrap at the width of an
address, so a ring may lie across the top of the address space. -/
def indexOf? (ring : Ring n) (address : UInt32) : Option (Fin n) :=
  let distance := (address - ring.base).toNat
  if distance % Slot.size = 0 then
    if inside : distance / Slot.size < n then some ⟨distance / Slot.size, inside⟩ else none
  else
    none

def places (_ring : Ring n) : List (Fin n) := List.finRange n

def ownedCount (ring : Ring n) : Nat := ring.places.countP ring.isOwned

/-- Gives `count` slots from `first` on back to the hardware, the first one first. -/
def rearm (ring : Ring n) (first : Fin n) : Nat → Ring n
  | 0 => ring
  | count + 1 => (ring.modifySlot first Slot.rearm).rearm (next first) count

@[simp]
theorem base_rearm (ring : Ring n) (first : Fin n) (count : Nat) : (ring.rearm first count).base = ring.base := by
  induction count generalizing ring first with
  | zero => rfl
  | succ count ih => rw [rearm, ih]; rfl

end Ring

end EthernetMac

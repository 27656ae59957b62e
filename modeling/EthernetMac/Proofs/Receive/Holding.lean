import EthernetMac.Proofs.RingArc
import EthernetMac.Proofs.Receive.Dma

namespace EthernetMac

theorem Pool.address_injective {n size : Nat} (pool : Pool n size) (positive : 0 < size)
    (bound : n * size ≤ UInt32.size) {i j : Fin n} (same : pool.address i = pool.address j) : i = j := by
  have reach (k : Fin n) : k.val * size < UInt32.size :=
    Nat.lt_of_lt_of_le (Nat.mul_lt_mul_of_pos_right k.isLt positive) bound
  have offsets : UInt32.ofNat (i.val * size) = UInt32.ofNat (j.val * size) :=
    (UInt32.add_right_inj pool.base).mp same
  have lengths := congrArg UInt32.toNat offsets
  rw [UInt32.toNat_ofNat_of_lt' (reach i), UInt32.toNat_ofNat_of_lt' (reach j)] at lengths
  exact Fin.ext (Nat.eq_of_mul_eq_mul_right positive lengths)

theorem Pool.find_address {n size : Nat} (pool : Pool n size) (positive : 0 < size) (bound : n * size ≤ UInt32.size)
    (i : Fin n) : (List.finRange n).find? (fun j => pool.address j = pool.address i) = some i := by
  cases search : (List.finRange n).find? (fun j => pool.address j = pool.address i) with
  | none =>
    have missed := List.find?_eq_none.mp search i (List.mem_finRange i)
    simp at missed
  | some j =>
    have hit := List.find?_some search
    rw [pool.address_injective positive bound (of_decide_eq_true hit)]

/-- What is deposited at the address of a block stands in that block and in no other. -/
theorem Pool.deposit_address {n size : Nat} (pool : Pool n size) (positive : 0 < size) (bound : n * size ≤ UInt32.size)
    (i : Fin n) (bytes : Array UInt8) : pool.deposit (pool.address i) bytes = pool.fill i bytes := by
  rw [deposit, pool.find_address positive bound]

theorem Geometry.rxPool_bound (g : Geometry) : g.rx * g.buffer ≤ UInt32.size := by
  have product := Nat.mul_le_mul g.rx_le g.buffer_le
  exact Nat.le_trans product (by decide)

namespace Reception

variable {g : Geometry}

theorem slots_pos (f : Reception g) : 0 < f.slots := by
  have := f.segments_pos
  unfold slots
  omega

theorem segments_le_slots (f : Reception g) : f.segments ≤ f.slots := Nat.le_add_right _ _

theorem slots_le_segments_succ (f : Reception g) : f.slots ≤ f.segments + 1 :=
  Nat.add_le_add_left (Bool.toNat_le f.stamp.isSome) f.segments

@[simp]
theorem length_parts (f : Reception g) : f.parts.length = f.slots := by simp [parts]

@[simp]
theorem getElem_parts (f : Reception g) (k : Nat) (inside : k < f.parts.length) : f.parts[k] = ⟨f, k⟩ := by
  simp [parts]

theorem take_parts_succ (f : Reception g) {k : Nat} (inside : k < f.slots) :
    f.parts.take (k + 1) = f.parts.take k ++ [⟨f, k⟩] := by
  rw [List.take_succ_eq_append_getElem (by simpa using inside), getElem_parts]

end Reception

namespace ReceiveDma

variable {g : Geometry} {dma : ReceiveDma g} {part : Part g}

theorem MayWrite.index_lt (due : dma.MayWrite part) : part.index < part.reception.slots := by
  unfold MayWrite at due
  split at due
  · rename_i next begun
    rw [due]
    exact (dma.begun next begun).2
  · rw [due]
    exact part.reception.slots_pos

theorem MayWrite.unfinished_eq (due : dma.MayWrite part) :
    dma.unfinished = part.reception.parts.take part.index := by
  unfold MayWrite at due
  unfold unfinished
  split at due
  · rw [due]
  · rw [due, List.take_zero]

@[simp]
theorem position_wrote (dma : ReceiveDma g) (part : Part g) : (dma.wrote part).position = Ring.next dma.position := by
  unfold wrote
  split <;> rfl

theorem MayWrite.wrote_cases (due : dma.MayWrite part) :
    (dma.wrote part).finished = dma.finished ∧ (dma.wrote part).unfinished = dma.unfinished ++ [part] ∧
        (dma.wrote part).underway = some ⟨part.reception, part.index + 1⟩ ∨
      (dma.wrote part).finished = dma.finished ++ [part.reception] ∧ (dma.wrote part).unfinished = [] ∧
        (dma.wrote part).underway = none ∧ part.reception.parts = dma.unfinished ++ [part] := by
  have inside := due.index_lt
  have grown := part.reception.take_parts_succ inside
  rw [← due.unfinished_eq] at grown
  by_cases more : part.index + 1 < part.reception.slots
  · refine Or.inl ⟨?_, ?_, ?_⟩
    · simp [wrote, more]
    · simpa [unfinished, wrote, more] using grown
    · simp [wrote, more]
  · refine Or.inr ⟨?_, ?_, ?_, ?_⟩
    · simp [wrote, more]
    · simp [unfinished, wrote, more]
    · simp [wrote, more]
    · rwa [List.take_of_length_le (by simp; omega)] at grown

theorem MayWrite.history_wrote (due : dma.MayWrite part) : (dma.wrote part).history = dma.history ++ [part] := by
  rcases due.wrote_cases with ⟨finished, unfinished, _⟩ | ⟨finished, unfinished, _, whole⟩
  · rw [history, history, finished, unfinished, List.append_assoc]
  · rw [history, history, finished, unfinished, List.flatMap_append, List.flatMap_singleton, whole,
      List.append_nil, List.append_assoc]

end ReceiveDma

namespace Receiver

variable {g : Geometry}

/-- The bytes of a segment stand at the start of a block. -/
def StoresPart (block : Block g.buffer) (part : Part g) : Prop :=
  ∀ (j : Fin g.buffer) (inside : part.index * g.buffer + j.val < part.reception.bytes.size),
    block.byte j = part.reception.bytes[part.index * g.buffer + j.val]

/-- The ring holds `parts`, one to a slot from `start` on, and every other slot waits for a frame with its own block.
The hardware clobbers descriptors but no extension, from which the block of a slot can be told again. -/
structure Holds (r : Receiver g) (start : Fin g.rx) (parts : List (Part g)) : Prop where
  fits : parts.length ≤ g.rx
  described : ∀ k (inside : k < parts.length), parts[k].Describes (r.ring.descriptor (Ring.advance start k))
  stored : ∀ k (inside : k < parts.length), StoresPart (r.pool.block (Ring.advance start k)) parts[k]
  waiting : ∀ k, parts.length ≤ k → k < g.rx →
    r.ring.descriptor (Ring.advance start k) = .armed (r.pool.address (Ring.advance start k))
  buffers : ∀ i, (r.ring.slot i).ext.buffer = r.pool.address i

theorem Holds.arm (r : Receiver g) (start : Fin g.rx) : r.arm.Holds start [] where
  fits := Nat.zero_le _
  described := by simp
  stored := by simp
  waiting := by simp [Receiver.arm, Ring.descriptor, Ring.slot]
  buffers := by simp [Receiver.arm, Ring.slot]

theorem isOwned_armed (buffer : UInt32) : (Descriptor.armed buffer).isOwned = true := by
  change (Descriptor.armedWord &&& Descriptor.ownBit != 0) = true
  decide

/-- The software-owned slots are those that hold something. -/
theorem Holds.isArc {r : Receiver g} {start : Fin g.rx} {parts : List (Part g)} (holds : r.Holds start parts) :
    r.ring.IsArc start parts.length where
  fits := holds.fits
  released := fun k inside => (holds.described k inside).released
  owned := fun k beyond inside => by
    rw [Ring.isOwned, holds.waiting k beyond inside]
    exact isOwned_armed _

theorem Holds.length_lt {r : Receiver g} {start : Fin g.rx} {parts : List (Part g)} (holds : r.Holds start parts)
    (owned : r.ring.isOwned (Ring.advance start parts.length) = true) : parts.length < g.rx := by
  rcases Nat.lt_or_eq_of_le holds.fits with short | whole
  · exact short
  · have first := holds.isArc.released 0 (by have := start.pos; omega)
    rw [whole, Ring.advance_length] at owned
    rw [Ring.advance_zero, owned] at first
    cases first

theorem Holds.congr {r s : Receiver g} {start : Fin g.rx} {parts : List (Part g)} (holds : r.Holds start parts)
    (ring : s.ring = r.ring) (pool : s.pool = r.pool) : s.Holds start parts where
  fits := holds.fits
  described := by rw [ring]; exact holds.described
  stored := by rw [pool]; exact holds.stored
  waiting := by rw [ring, pool]; exact holds.waiting
  buffers := by rw [ring, pool]; exact holds.buffers

theorem storesPart_fill (pool : Pool g.rx g.buffer) (i : Fin g.rx) (part : Part g) :
    StoresPart ((pool.fill i part.bytes).block i) part := by
  intro j inside
  have short := j.isLt
  have next : (part.index + 1) * g.buffer = part.index * g.buffer + g.buffer := Nat.succ_mul _ _
  have copied : part.bytes[j.val]? = some part.reception.bytes[part.index * g.buffer + j.val] := by
    rw [Part.bytes, Array.getElem?_extract, if_pos (by omega), Array.getElem?_eq_getElem inside]
  rw [Pool.block_fill_self, Block.byte_overlay, if_pos (Nat.zero_le _), Nat.sub_zero, copied, Option.getD_some]

/-- What the DMA receives goes to the block of the slot that it writes back. -/
theorem Holds.pool_writeBack {r : Receiver g} {start : Fin g.rx} {parts : List (Part g)} (holds : r.Holds start parts)
    (owned : r.ring.isOwned (Ring.advance start parts.length) = true) (d : Descriptor) (bytes : Array UInt8) :
    (r.writeBack (Ring.advance start parts.length) d bytes).pool =
      r.pool.fill (Ring.advance start parts.length) bytes := by
  rw [Receiver.writeBack, holds.waiting _ (Nat.le_refl _) (holds.length_lt owned)]
  exact r.pool.deposit_address g.buffer_pos g.rxPool_bound _ _

theorem Holds.writeBack {r : Receiver g} {start : Fin g.rx} {parts : List (Part g)} {part : Part g} {d : Descriptor}
    (holds : r.Holds start parts) (owned : r.ring.isOwned (Ring.advance start parts.length) = true)
    (describes : part.Describes d) :
    (r.writeBack (Ring.advance start parts.length) d part.bytes).Holds start (parts ++ [part]) := by
  have room := holds.length_lt owned
  have target := holds.pool_writeBack owned d part.bytes
  have elsewhere : ∀ k, k < g.rx → k ≠ parts.length →
      Ring.advance start parts.length ≠ Ring.advance start k :=
    fun k inside other same => other (Ring.advance_injective start inside room same.symm)
  have kept : ∀ k, k < g.rx → k ≠ parts.length →
      (r.writeBack (Ring.advance start parts.length) d part.bytes).ring.slot (Ring.advance start k) =
        r.ring.slot (Ring.advance start k) :=
    fun k inside other => Ring.slot_modifySlot_of_ne _ _ (elsewhere k inside other)
  have written : (r.writeBack (Ring.advance start parts.length) d part.bytes).ring.slot
      (Ring.advance start parts.length) = { r.ring.slot (Ring.advance start parts.length) with descriptor := d } :=
    Ring.slot_modifySlot_self _ _ _
  refine ⟨by rw [List.length_append, List.length_singleton]; exact room, ?_, ?_, ?_, ?_⟩
  · intro k inside
    rw [List.length_append, List.length_singleton] at inside
    rcases Nat.lt_or_eq_of_le (Nat.le_of_lt_succ inside) with old | new
    · rw [Ring.descriptor, kept k (by omega) (by omega), List.getElem_append_left old]
      exact holds.described k old
    · subst new
      rw [Ring.descriptor, written, List.getElem_concat_length rfl]
      exact describes
  · intro k inside
    rw [target]
    rw [List.length_append, List.length_singleton] at inside
    rcases Nat.lt_or_eq_of_le (Nat.le_of_lt_succ inside) with old | new
    · rw [Pool.block_fill_of_ne _ _ (elsewhere k (by omega) (by omega)), List.getElem_append_left old]
      exact holds.stored k old
    · subst new
      rw [List.getElem_concat_length rfl]
      exact storesPart_fill _ _ _
  · intro k beyond inside
    rw [List.length_append, List.length_singleton] at beyond
    rw [target, Ring.descriptor, kept k inside (by omega), Pool.address_fill]
    exact holds.waiting k (by omega) inside
  · intro i
    rw [target, Pool.address_fill]
    obtain ⟨k, inside, rfl⟩ := Ring.exists_advance start i
    by_cases here : k = parts.length
    · rw [here, written]
      exact holds.buffers _
    · rw [kept k inside here]
      exact holds.buffers _

/-- When the slots of the first parts are given back, the ring holds the others, and starts behind them. -/
theorem Holds.rearm {r : Receiver g} {start : Fin g.rx} {gone rest : List (Part g)}
    (holds : r.Holds start (gone ++ rest)) :
    { r with ring := r.ring.rearm start gone.length }.Holds (Ring.advance start gone.length) rest := by
  have total : gone.length + rest.length ≤ g.rx := by simpa using holds.fits
  have kept : ∀ k, gone.length ≤ k → k < g.rx →
      (r.ring.rearm start gone.length).slot (Ring.advance start k) = r.ring.slot (Ring.advance start k) :=
    fun k beyond inside => Ring.slot_rearm_of_ge _ _ beyond inside
  have armed : ∀ k, k < gone.length → (r.ring.rearm start gone.length).slot (Ring.advance start k) =
      { r.ring.slot (Ring.advance start k) with descriptor := .armed (r.pool.address (Ring.advance start k)) } := by
    intro k inside
    rw [Ring.slot_rearm_of_lt _ _ (by omega) inside, Slot.rearm, holds.buffers]
  refine ⟨by omega, ?_, ?_, ?_, ?_⟩
  · intro k inside
    have described := holds.described (gone.length + k) (by simpa using inside)
    rw [List.getElem_append_right (Nat.le_add_right _ _)] at described
    simp only [Nat.add_sub_cancel_left] at described
    rw [Ring.advance_advance, Ring.descriptor, kept _ (Nat.le_add_right _ _) (by omega)]
    exact described
  · intro k inside
    have stored := holds.stored (gone.length + k) (by simpa using inside)
    rw [List.getElem_append_right (Nat.le_add_right _ _)] at stored
    simp only [Nat.add_sub_cancel_left] at stored
    rw [Ring.advance_advance]
    exact stored
  · intro k beyond inside
    rw [Ring.advance_advance, Ring.descriptor]
    by_cases turned : gone.length + k < g.rx
    · rw [kept _ (Nat.le_add_right _ _) turned]
      exact holds.waiting _ (by rw [List.length_append]; omega) turned
    · -- once round the ring, these are the slots that were just given back
      have wrapped : gone.length + k = (gone.length + k - g.rx) + g.rx := by omega
      rw [wrapped, Ring.advance_add_length, armed _ (by omega)]
  · intro i
    obtain ⟨k, inside, rfl⟩ := Ring.exists_advance start i
    by_cases back : k < gone.length
    · rw [armed k back]
      exact holds.buffers _
    · rw [kept k (by omega) inside]
      exact holds.buffers _

end Receiver

end EthernetMac
